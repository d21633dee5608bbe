import Relays.Tenancy.Routes

/-! Whether what a workspace reads depends on the rows of the others: two database states that
agree on its rows are told apart by the requests for what is not its own. -/

namespace Relays.Tenancy

section Statement

variable (environment : Environment) (workspaceId : Uuid)

/-- The states agree on the rows of the workspace. -/
structure Agree (first second : Database) : Prop where
  workspace : getWorkspaceById first workspaceId = getWorkspaceById second workspaceId
  members : first.members.filter (·.workspaceId = workspaceId) =
    second.members.filter (·.workspaceId = workspaceId)
  users : ∀ member ∈ first.members, member.workspaceId = workspaceId →
    getUserById first member.userId = getUserById second member.userId
  apiKeys : first.apiKeys.filter (·.2.val.workspaceId = workspaceId) =
    second.apiKeys.filter (·.2.val.workspaceId = workspaceId)
  notifications : first.notifications.filter (·.val.workspaceId = workspaceId) =
    second.notifications.filter (·.val.workspaceId = workspaceId)

/-- The header is no key of another workspace. -/
def CallerOf (database : Database) (authorization : Option String) : Prop :=
  ∀ presented keyPrefix, presentedKey authorization = .ok presented →
    extractPrefix presented = .ok keyPrefix →
    ∀ apiKey ∈ database.apiKeys, apiKey.2.val.keyPrefix = keyPrefix →
      apiKey.2.val.keyHash = hashApiKey environment.sha512 presented →
        apiKey.2.val.workspaceId = workspaceId

/-- The answer is the same in every state that agrees on the rows of the workspace. -/
def Isolated (database : Database) (request : Request) : Prop :=
  ∀ other : Database, other.Valid → Agree workspaceId database other →
    CallerOf environment workspaceId other request.authorization →
    respond environment other request = respond environment database request

/-- The request is refused, or is for what belongs to the workspace. -/
def Within (database : Database) (request : Request) : Prop :=
  match request.route with
  | .getNotify notificationId =>
    (∃ apiKeyId owner, guard environment database request.authorization =
      .authenticated apiKeyId owner) →
      ∃ row ∈ database.notifications, row.val.id = notificationId ∧
        row.val.workspaceId = workspaceId
  | .getWorkspace id | .getWorkspaceMembers id => id = workspaceId

end Statement

section Same

variable {environment : Environment} {workspaceId : Uuid} {database other : Database}
    {authorization : Option String}

/-- For a caller of the workspace, a key of another workspace is as good as none. -/
theorem check_own {presented keyPrefix : String} (valid : database.Valid)
    (caller : CallerOf environment workspaceId database authorization)
    (header : presentedKey authorization = .ok presented)
    (extracted : extractPrefix presented = .ok keyPrefix) :
    checkApiKey environment.sha512 environment.now presented
      (getApiKeyByPrefix database keyPrefix) =
      checkApiKey environment.sha512 environment.now presented
        (Keyed.get (fun apiKey => apiKey.2.val.keyPrefix)
          (database.apiKeys.filter (·.2.val.workspaceId = workspaceId)) keyPrefix) := by
  rw [Keyed.get_filter valid.uqKeyPrefix, ← getApiKeyByPrefix]
  cases found : getApiKeyByPrefix database keyPrefix with
  | none => rfl
  | some apiKey =>
    rw [Option.filter_some]
    by_cases own : apiKey.2.val.workspaceId = workspaceId
    · rw [if_pos (by simpa using own)]
    · obtain ⟨member, named⟩ := (Keyed.get_eq_some valid.uqKeyPrefix).mp found
      have foreign : apiKey.2.val.keyHash ≠ hashApiKey environment.sha512 presented :=
        fun same => own (caller presented keyPrefix header extracted apiKey member named same)
      simp [own, checkApiKey, foreign]

theorem Agree.guard_eq (agree : Agree workspaceId database other) (valid : database.Valid)
    (valid' : other.Valid)
    (caller : CallerOf environment workspaceId database authorization)
    (caller' : CallerOf environment workspaceId other authorization) :
    guard environment other authorization = guard environment database authorization := by
  unfold guard authenticateApiKey
  cases header : presentedKey authorization with
  | error error => rfl
  | ok presented =>
    cases extracted : extractPrefix presented with
    | error text => simp [extracted]
    | ok keyPrefix =>
      simp only [extracted]
      rw [check_own valid caller header extracted, check_own valid' caller' header extracted,
        agree.apiKeys]

theorem Agree.getNotify_eq (agree : Agree workspaceId database other) (valid : database.Valid)
    (valid' : other.Valid)
    {row : StoredNotification} (member : row ∈ database.notifications)
    (own : row.val.workspaceId = workspaceId) :
    getNotify other row.val.id = getNotify database row.val.id := by
  have kept : row ∈ other.notifications := by
    have filtered : row ∈ database.notifications.filter (·.val.workspaceId = workspaceId) :=
      List.mem_filter.mpr ⟨member, by simpa using own⟩
    rw [agree.notifications] at filtered
    exact List.mem_of_mem_filter filtered
  have here := (Keyed.get_eq_some valid.notifications).mpr ⟨member, rfl⟩
  have there := (Keyed.get_eq_some valid'.notifications).mpr ⟨kept, rfl⟩
  simp only [getNotify, getNotification, here, there]

theorem Agree.getWorkspaceMembers_eq (agree : Agree workspaceId database other)
    (nameLe : String → String → Bool) :
    getWorkspaceMembers other nameLe workspaceId =
      getWorkspaceMembers database nameLe workspaceId := by
  unfold getWorkspaceMembers
  rw [← agree.members]
  congr 1
  apply List.filterMap_congr
  intro member listed
  obtain ⟨there, own⟩ := List.mem_filter.mp listed
  rw [memberBody, memberBody, agree.users member there (by simpa using own)]

theorem isolated_of_within {request : Request} (valid : database.Valid)
    (caller : CallerOf environment workspaceId database request.authorization)
    (within : Within environment workspaceId database request) :
      Isolated environment workspaceId database request := by
  intro other valid' agree caller'
  obtain ⟨authorization, route⟩ := request
  cases route with
  | getNotify notificationId =>
    simp only [respond, agree.guard_eq valid valid' caller caller']
    cases accepted : guard environment database authorization with
    | rejected error => rfl
    | unhandled => rfl
    | authenticated apiKeyId owner =>
      obtain ⟨row, member, rfl, own⟩ := within ⟨apiKeyId, owner, accepted⟩
      exact agree.getNotify_eq valid valid' member own
  | getWorkspace id =>
    obtain rfl : id = workspaceId := within
    simp only [respond, getWorkspaceRoute, agree.workspace]
  | getWorkspaceMembers id =>
    obtain rfl : id = workspaceId := within
    simp only [respond, getWorkspaceMembersRoute, agree.workspace, agree.getWorkspaceMembers_eq]

end Same

end Relays.Tenancy
