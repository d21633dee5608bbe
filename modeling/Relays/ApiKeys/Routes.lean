import Relays.ApiKeys.Guard
import Relays.Library.Processes
import Relays.Library.Transition
import Mathlib.Data.List.Sort

/-! The API key routes: any number of requests of any number of workspaces, whose statements
interleave over the table while the clock moves on. -/

namespace Relays.ApiKeys

open ReadCommitted

/-- What `authenticate_jwt` attaches to a request. -/
structure Caller where
  workspaceId : Uuid
  userId : Uuid

section Queries

variable (apiKeys : ApiKeyTable)

def getApiKeyByPrefix (keyPrefix : String) : Option (Uuid × StoredApiKey) :=
  (apiKeys.select fun row => row.val.keyPrefix = keyPrefix).head?

def getApiKeyByIdAndWorkspace (id workspaceId : Uuid) : Option StoredApiKey :=
  (apiKeys.row id).filter fun row => row.val.workspaceId = workspaceId

/-- `ORDER BY created_at DESC`. -/
def newestFirst (first second : Uuid × StoredApiKey) : Prop :=
  second.2.val.createdAt ≤ first.2.val.createdAt

instance : DecidableRel newestFirst := fun first second =>
  inferInstanceAs (Decidable (second.2.val.createdAt ≤ first.2.val.createdAt))

def listWorkspaceApiKeys (workspaceId : Uuid) : List (Uuid × StoredApiKey) :=
  (apiKeys.select fun row => row.val.workspaceId = workspaceId).insertionSort newestFirst

/-- The row of `create_api_key`; the remaining columns take their defaults. -/
def newApiKey (now : Time) (caller : Caller) (name : KeyName) (keyPrefix keyHash : String)
    (expiresAt : Option Time) : StoredApiKey :=
  ⟨{ workspaceId := caller.workspaceId, createdBy := caller.userId, name := name.text, keyPrefix,
     keyHash, expiresAt, createdAt := now, updatedAt := now }, ⟨name.not_blank, .inl ⟨rfl, rfl⟩⟩⟩

def createApiKey (tx : Nat) (id : Uuid) (row : StoredApiKey) : Statement ApiKeyTable :=
  apiKeys.insert tx id row ApiKey.clash

/-- The WHERE clause of `revoke_api_key`, besides the id. -/
def revokable (workspaceId : Uuid) (row : StoredApiKey) : Bool :=
  row.val.workspaceId = workspaceId && row.val.status = .active

/-- The SET clause of `revoke_api_key`. -/
def revoked (now : Time) (row : StoredApiKey) : StoredApiKey :=
  ⟨{ row.val with status := .revoked, revokedAt := some now, updatedAt := now },
    ⟨row.property.chkNameNotBlank, .inr ⟨rfl, rfl⟩⟩⟩

/-- The lock is waited for if the row matches as it is seen. -/
def revokeApiKey (tx : Nat) (now : Time) (id workspaceId : Uuid) :
    Statement (ApiKeyTable × Option StoredApiKey) :=
  if ((apiKeys.cells id).view tx).any (revokable workspaceId) then
    apiKeys.update tx id (revokable workspaceId) fun row => some (revoked now row)
  else .returns (apiKeys, none)

end Queries

/-- How a call ends; what is not an `APIException` is answered 500. -/
inductive Outcome where
  | created (body : APIKeyResponseBody)
  | listed (bodies : List APIKeyListResponseBody)
  | shown (body : APIKeyListResponseBody)
  | revoked (body : APIKeyResponseBody)
  | error (error : APIException)
  | unhandled
  deriving DecidableEq, Repr

/-- The message of the first validation error. -/
def requestInvalid (text : String) : APIException where
  statusCode := 400
  code := .invalidRequest
  message := "Value error, " ++ text

def nameTaken : APIException where
  statusCode := 409
  code := .conflict
  message := "API Key Name already exists"

def apiKeyNotFound : APIException where
  statusCode := 404
  code := .notFound
  message := "API Key not found"

/-- What the database and `secrets` supply to a statement. -/
structure Draw where
  id : Uuid
  secretPart : String

namespace CreateApiKey

inductive Phase where
  | validated (name : KeyName) (expiresAt : Option Time)
  | begun (now : Time) (name : KeyName) (expiresAt : Option Time) (apiKey keyPrefix : String)
  | inserted (id : Uuid) (row : StoredApiKey) (apiKey : String)
  | ended (outcome : Outcome)

def start (clock : Time) (name : String) (expiresAt : Option Time) : Phase :=
  match validateKeyName name with
  | .error text => .ended (.error (requestInvalid text))
  | .ok name =>
    match validateExpiresAt clock expiresAt with
    | .error text => .ended (.error (requestInvalid text))
    | .ok expiresAt => .validated name expiresAt

def body (id : Uuid) (row : StoredApiKey) (apiKey : String) : APIKeyResponseBody :=
  { row.val.listBody id with lastUsedAt := none, revokedAt := none, apiKey := some apiKey }

def step (sha512 : String → String) (tx : Nat) (clock : Time) (apiKeys : ApiKeyTable)
    (caller : Caller)
    (draw : Draw) : Phase → Option (ApiKeyTable × Phase)
  | .validated name expiresAt =>
    let apiKey := generateApiKey draw.secretPart
    match extractPrefix apiKey with
    | .error _ => some (apiKeys, .ended .unhandled)
    | .ok keyPrefix => some (apiKeys, .begun clock name expiresAt apiKey keyPrefix)
  | .begun now name expiresAt apiKey keyPrefix =>
    let row := newApiKey now caller name keyPrefix (hashApiKey sha512 apiKey) expiresAt
    match createApiKey apiKeys tx draw.id row with
    | .waits => none
    | .violates => some (apiKeys.rollback tx, .ended (.error nameTaken))
    | .returns next => some (next, .inserted draw.id row apiKey)
  | .inserted id row apiKey => some (apiKeys.commit tx, .ended (.created (body id row apiKey)))
  | .ended _ => none

end CreateApiKey

namespace ListApiKeys

inductive Phase where
  | begun
  | ended (outcome : Outcome)

def step (apiKeys : ApiKeyTable) (caller : Caller) : Phase → Option (ApiKeyTable × Phase)
  | .begun =>
    let rows := listWorkspaceApiKeys apiKeys caller.workspaceId
    some (apiKeys, .ended (.listed (rows.map fun (id, row) => row.val.listBody id)))
  | .ended _ => none

end ListApiKeys

namespace GetApiKey

inductive Phase where
  | begun
  | ended (outcome : Outcome)

def step (apiKeys : ApiKeyTable) (caller : Caller)
    (id : Uuid) : Phase → Option (ApiKeyTable × Phase)
  | .begun =>
    match getApiKeyByIdAndWorkspace apiKeys id caller.workspaceId with
    | none => some (apiKeys, .ended (.error apiKeyNotFound))
    | some row => some (apiKeys, .ended (.shown (row.val.listBody id)))
  | .ended _ => none

end GetApiKey

namespace RevokeApiKey

inductive Phase where
  | begun (now : Time)
  | missed
  | updated (row : StoredApiKey)
  | ended (outcome : Outcome)

def step (tx : Nat) (apiKeys : ApiKeyTable) (caller : Caller)
    (id : Uuid) : Phase → Option (ApiKeyTable × Phase)
  | .begun now =>
    match revokeApiKey apiKeys tx now id caller.workspaceId with
    | .waits => none
    | .violates => some (apiKeys.rollback tx, .ended .unhandled)
    | .returns (next, none) => some (next, .missed)
    | .returns (next, some row) => some (next, .updated row)
  | .missed => some (apiKeys.commit tx, .ended (.error apiKeyNotFound))
  | .updated row => some (apiKeys.commit tx, .ended (.revoked { row.val.listBody id with }))
  | .ended _ => none

end RevokeApiKey

/-- What a call does, and how far it has come. -/
inductive Activity where
  | create (phase : CreateApiKey.Phase)
  | list (phase : ListApiKeys.Phase)
  | get (id : Uuid) (phase : GetApiKey.Phase)
  | revoke (id : Uuid) (phase : RevokeApiKey.Phase)

structure Call where
  caller : Caller
  activity : Activity

inductive Request where
  | create (name : String) (expiresAt : Option Time)
  | list
  | get (id : Uuid)
  | revoke (id : Uuid)

def Request.start (clock : Time) : Request → Activity
  | .create name expiresAt => .create (CreateApiKey.start clock name expiresAt)
  | .list => .list .begun
  | .get id => .get id .begun
  | .revoke id => .revoke id (.begun clock)

namespace Activity

def outcome : Activity → Option Outcome
  | create (.ended outcome) | list (.ended outcome) | get _ (.ended outcome)
  | revoke _ (.ended outcome) => some outcome
  | _ => none

/-- The database or the process fails. -/
def fail : Activity → Activity
  | create _ => create (.ended .unhandled)
  | list _ => list (.ended .unhandled)
  | get id _ => get id (.ended .unhandled)
  | revoke id _ => revoke id (.ended .unhandled)

/-- The next statement, `none` when the call has ended or waits for a lock. -/
def step (sha512 : String → String) (tx : Nat) (clock : Time) (apiKeys : ApiKeyTable)
    (caller : Caller)
    (draw : Draw) : Activity → Option (ApiKeyTable × Activity)
  | create phase => (CreateApiKey.step sha512 tx clock apiKeys caller draw phase).map
    (Prod.map id create)
  | list phase => (ListApiKeys.step apiKeys caller phase).map (Prod.map id list)
  | get key phase => (GetApiKey.step apiKeys caller key phase).map (Prod.map id (get key))
  | revoke key phase => (RevokeApiKey.step tx apiKeys caller key phase).map
    (Prod.map id (revoke key))

end Activity

structure State where
  clock : Time
  apiKeys : ApiKeyTable
  calls : List Call

namespace State

def init : State := ⟨0, Relation.empty, []⟩

inductive Event where
  | tick (elapsed : Nat)
  | arrive (caller : Caller) (request : Request)
  | call (index : Nat) (draw : Draw)
  | abort (index : Nat)

def step (sha512 : String → String) (state : State) : Event → Option State
  | .tick elapsed => some { state with clock := state.clock + elapsed }
  | .arrive caller request =>
      some { state with calls := state.calls ++ [⟨caller, request.start state.clock⟩] }
  | .call index draw =>
    match state.calls[index]? with
    | none => none
    | some ⟨caller, activity⟩ =>
      match activity.step sha512 index state.clock state.apiKeys caller draw with
      | none => none
      | some (apiKeys, next) =>
          some { state with apiKeys, calls := state.calls.set index ⟨caller, next⟩ }
  | .abort index =>
    match state.calls[index]? with
    | none => none
    | some ⟨caller, activity⟩ =>
      if activity.outcome.isSome then none
      else some { state with
        apiKeys := state.apiKeys.rollback index
        calls := state.calls.set index ⟨caller, activity.fail⟩ }

def system (sha512 : String → String) : Transition.System State Event := ⟨init, step sha512⟩

/-- The guard as it answers at a time, over the committed rows. -/
def guard (sha512 : String → String) (state : State) (now : Time)
    (authorization : Option String) : Guarded :=
  authenticateApiKey sha512 now (getApiKeyByPrefix state.apiKeys) authorization

end State

end Relays.ApiKeys
