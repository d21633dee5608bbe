import Relays.Notifications.Queries
import Relays.Tenancy.Isolation

/-! Every request for what is not the workspace's own is answered from the rows of others: there
is a state that agrees on the rows of the workspace and answers otherwise. -/

namespace Relays.Tenancy

section Changes

variable (database : Database)

def addWorkspace (id : Uuid) (slug : String) : Database :=
  { database with
    workspaces := database.workspaces ++
      [(id, { name := slug, slug, createdAt := 0, updatedAt := 0 })] }

def rename (id : Uuid) (workspace : Uuid × Workspace) : Uuid × Workspace :=
  if workspace.1 = id then (workspace.1, { workspace.2 with name := workspace.2.name.push 'x' })
    else workspace

def renameWorkspace (id : Uuid) : Database :=
  { database with workspaces := database.workspaces.map (rename id) }

def addMember (workspaceId userId : Uuid) (email : String) : Database :=
  { database with
    users := database.users ++ [(userId, { email, name := email, createdAt := 0, updatedAt := 0 })]
    members := database.members ++ [{ workspaceId, userId, joinedAt := 0 }] }

def readdress (id : Uuid) (notification : StoredNotification) : StoredNotification :=
  if notification.val.id = id then
    ⟨{ notification.val with recipient := notification.val.recipient.push 'x' },
      { notification.property with recipientNotEmpty := by simp }⟩
  else notification

def readdressNotification (id : Uuid) : Database :=
  { database with notifications := database.notifications.map (readdress id) }

/-- A notification as `create_notification` stores it. -/
def queuedNotification (id workspaceId apiKeyId : Uuid) : StoredNotification :=
  ⟨createNotification 0 id workspaceId apiKeyId .email .fake "a@b.co" (.obj []) (.obj []),
    createNotification_checks_iff.mpr (by decide)⟩

def addNotification (id workspaceId apiKeyId : Uuid) : Database :=
  { database with
    notifications := database.notifications ++ [queuedNotification id workspaceId apiKeyId] }

end Changes

section Kept

variable {environment : Environment} {workspaceId id userId apiKeyId : Uuid} {database : Database}
variable {slug email : String} {authorization : Option String}

theorem rename_id (workspace : Uuid × Workspace) : (rename id workspace).1 = workspace.1 := by
  unfold rename
  split <;> rfl

theorem rename_slug (workspace : Uuid × Workspace) : (rename id workspace).2.slug =
    workspace.2.slug := by
  unfold rename
  split <;> rfl

theorem readdress_id (notification : StoredNotification) :
    (readdress id notification).val.id = notification.val.id := by
  unfold readdress
  split <;> rfl

theorem readdress_workspaceId (notification : StoredNotification) :
    (readdress id notification).val.workspaceId = notification.val.workspaceId := by
  unfold readdress
  split <;> rfl

theorem readdress_apiKeyId (notification : StoredNotification) :
    (readdress id notification).val.apiKeyId = notification.val.apiKeyId := by
  unfold readdress
  split <;> rfl

theorem addWorkspace_valid (valid : database.Valid)
    (fresh : id ∉ database.workspaces.map fun workspace => workspace.1)
    (free : slug ∉ database.workspaces.map fun workspace => workspace.2.slug) :
    (addWorkspace database id slug).Valid := by
  have kept : ∀ key ∈ database.workspaces.map (fun workspace => workspace.1),
      key ∈ (addWorkspace database id slug).workspaces.map fun workspace => workspace.1 := by
    intro key member
    simp only [addWorkspace, List.map_append]
    exact List.mem_append_left _ member
  exact { valid with
    workspaces := Keyed.nodup_concat valid.workspaces fresh
    uqSlug := Keyed.nodup_concat valid.uqSlug free
    fkMemberWorkspace := fun member listed => kept _ (valid.fkMemberWorkspace member listed)
    fkKeyWorkspace := fun apiKey listed => kept _ (valid.fkKeyWorkspace apiKey listed)
    fkNotificationsWorkspace :=
      fun row listed => kept _ (valid.fkNotificationsWorkspace row listed) }

theorem addWorkspace_agree (apart : id ≠ workspaceId) :
    Agree workspaceId database (addWorkspace database id slug) where
  workspace := by
    simp only [getWorkspaceById, addWorkspace, Keyed.get_concat]
    simp [apart]
  members := rfl
  users _ _ _ := rfl
  apiKeys := rfl
  notifications := rfl

theorem renameWorkspace_valid (valid : database.Valid) : (renameWorkspace database id).Valid := by
  have keys : (renameWorkspace database id).workspaces.map (fun workspace => workspace.1) =
      database.workspaces.map fun workspace => workspace.1 := Keyed.map_column rename_id
  have slugs : (renameWorkspace database id).workspaces.map (fun workspace => workspace.2.slug) =
      database.workspaces.map fun workspace => workspace.2.slug := Keyed.map_column rename_slug
  exact { valid with
    workspaces := by rw [keys]; exact valid.workspaces
    uqSlug := by rw [slugs]; exact valid.uqSlug
    fkMemberWorkspace := by rw [keys]; exact valid.fkMemberWorkspace
    fkKeyWorkspace := by rw [keys]; exact valid.fkKeyWorkspace
    fkNotificationsWorkspace := by rw [keys]; exact valid.fkNotificationsWorkspace }

theorem getWorkspaceById_rename (key : Uuid) :
    getWorkspaceById (renameWorkspace database id) key =
      (getWorkspaceById database key).map (rename id) :=
  Keyed.get_map rename_id

theorem renameWorkspace_agree (valid : database.Valid) (apart : id ≠ workspaceId) :
    Agree workspaceId database (renameWorkspace database id) where
  workspace := by
    rw [getWorkspaceById_rename]
    cases found : getWorkspaceById database workspaceId with
    | none => rfl
    | some workspace =>
      obtain ⟨_, same⟩ := (Keyed.get_eq_some valid.workspaces).mp found
      have other : workspace.1 ≠ id := by rw [same]; exact Ne.symm apart
      simp [rename, other]
  members := rfl
  users _ _ _ := rfl
  apiKeys := rfl
  notifications := rfl

theorem addMember_valid (valid : database.Valid)
    (present : id ∈ database.workspaces.map fun workspace => workspace.1)
    (fresh : userId ∉ database.users.map fun user => user.1)
    (free : email ∉ database.users.map fun user => user.2.email) :
    (addMember database id userId email).Valid := by
  have kept : ∀ key ∈ database.users.map (fun user => user.1),
      key ∈ (addMember database id userId email).users.map fun user => user.1 := by
    intro key member
    simp only [addMember, List.map_append]
    exact List.mem_append_left _ member
  have added : userId ∈ (addMember database id userId email).users.map fun user => user.1 := by
    simp [addMember]
  have alone : (id, userId) ∉ database.members.map fun member =>
      (member.workspaceId, member.userId) := by
    intro listed
    obtain ⟨member, there, same⟩ := List.mem_map.mp listed
    exact fresh ((Prod.mk.inj same).2 ▸ valid.fkMemberUser member there)
  have owners : (addMember database id userId email).members.filter (·.role = .owner) =
      database.members.filter (·.role = .owner) := by
    simp [addMember, List.filter_append]
  exact { valid with
    users := Keyed.nodup_concat valid.users fresh
    uqEmail := Keyed.nodup_concat valid.uqEmail free
    members := Keyed.nodup_concat valid.members alone
    uqWorkspaceSingleOwner := by rw [owners]; exact valid.uqWorkspaceSingleOwner
    fkMemberWorkspace := by
      intro member listed
      rcases List.mem_append.mp listed with earlier | last
      · exact valid.fkMemberWorkspace member earlier
      · rw [List.mem_singleton.mp last]
        exact present
    fkMemberUser := by
      intro member listed
      rcases List.mem_append.mp listed with earlier | last
      · exact kept _ (valid.fkMemberUser member earlier)
      · rw [List.mem_singleton.mp last]
        exact added
    fkCreatedBy := fun apiKey listed => kept _ (valid.fkCreatedBy apiKey listed) }

theorem getUserById_addMember {key : Uuid} (apart : userId ≠ key) :
    getUserById (addMember database id userId email) key = getUserById database key := by
  simp only [getUserById, addMember, Keyed.get_concat]
  simp [apart]

theorem addMember_agree (valid : database.Valid) (apart : id ≠ workspaceId)
    (fresh : userId ∉ database.users.map fun user => user.1) :
    Agree workspaceId database (addMember database id userId email) where
  workspace := rfl
  members := by simp [addMember, List.filter_append, apart]
  users member listed _ := by
    refine (getUserById_addMember ?_).symm
    rintro rfl
    exact fresh (valid.fkMemberUser member listed)
  apiKeys := rfl
  notifications := rfl

theorem readdressNotification_valid (valid : database.Valid) :
    (readdressNotification database id).Valid := by
  have keys : (readdressNotification database id).notifications.map (fun row => row.val.id) =
      database.notifications.map fun row => row.val.id := Keyed.map_column readdress_id
  exact { valid with
    notifications := by rw [keys]; exact valid.notifications
    fkNotificationsWorkspace := by
      intro row listed
      obtain ⟨earlier, member, rfl⟩ := List.mem_map.mp listed
      rw [readdress_workspaceId]
      exact valid.fkNotificationsWorkspace earlier member
    fkNotificationsApiKey := by
      intro row listed
      obtain ⟨earlier, member, rfl⟩ := List.mem_map.mp listed
      rw [readdress_apiKeyId]
      exact valid.fkNotificationsApiKey earlier member }

theorem readdressNotification_agree
    (foreign : ∀ row ∈ database.notifications, row.val.id = id →
      row.val.workspaceId ≠ workspaceId) :
    Agree workspaceId database (readdressNotification database id) where
  workspace := rfl
  members := rfl
  users _ _ _ := rfl
  apiKeys := rfl
  notifications := by
    refine (Keyed.filter_map ?_ ?_).symm
    · intro row
      simp [readdress_workspaceId]
    · intro row member own
      have other : row.val.id ≠ id := fun same => foreign row member same (by simpa using own)
      simp [readdress, other]

theorem addNotification_valid (valid : database.Valid)
    (present : workspaceId ∈ database.workspaces.map fun workspace => workspace.1)
    (keyed : apiKeyId ∈ database.apiKeys.map fun apiKey => apiKey.1)
    (fresh : id ∉ database.notifications.map fun row => row.val.id) :
    (addNotification database id workspaceId apiKeyId).Valid :=
  { valid with
    notifications := Keyed.nodup_concat valid.notifications fresh
    fkNotificationsWorkspace := by
      intro row listed
      rcases List.mem_append.mp listed with earlier | last
      · exact valid.fkNotificationsWorkspace row earlier
      · rw [List.mem_singleton.mp last]
        exact present
    fkNotificationsApiKey := by
      intro row listed
      rcases List.mem_append.mp listed with earlier | last
      · exact valid.fkNotificationsApiKey row earlier
      · rw [List.mem_singleton.mp last]
        exact keyed }

theorem addNotification_agree {owner : Uuid} (apart : owner ≠ workspaceId) :
    Agree workspaceId database (addNotification database id owner apiKeyId) where
  workspace := rfl
  members := rfl
  users _ _ _ := rfl
  apiKeys := rfl
  notifications := by
    simp [addNotification, List.filter_append, queuedNotification, createNotification, apart]

theorem Agree.trans {first second third : Database} (front : Agree workspaceId first second)
    (back : Agree workspaceId second third) : Agree workspaceId first third where
  workspace := front.workspace.trans back.workspace
  members := front.members.trans back.members
  users member listed own := by
    have kept : member ∈ second.members := by
      have filtered : member ∈ first.members.filter (·.workspaceId = workspaceId) :=
        List.mem_filter.mpr ⟨listed, by simpa using own⟩
      rw [front.members] at filtered
      exact List.mem_of_mem_filter filtered
    exact (front.users member listed own).trans (back.users member kept own)
  apiKeys := front.apiKeys.trans back.apiKeys
  notifications := front.notifications.trans back.notifications

end Kept

section Converse

variable {environment : Environment} {workspaceId id : Uuid} {database : Database}
    {authorization : Option String}

theorem push_ne (text : String) (char : Char) : text.push char ≠ text := by
  intro same
  have length := congrArg String.length same
  simp at length

theorem getWorkspaceById_addWorkspace (slug : String)
    (absent : getWorkspaceById database id = none) :
    getWorkspaceById (addWorkspace database id slug) id =
      some (id, { name := slug, slug, createdAt := 0, updatedAt := 0 }) := by
  rw [getWorkspaceById, addWorkspace, Keyed.get_concat, ← getWorkspaceById, absent]
  simp

theorem getNotification_addNotification {owner apiKeyId : Uuid}
    (absent : getNotification database id = none) :
    getNotification (addNotification database id owner apiKeyId) id =
      some (queuedNotification id owner apiKeyId) := by
  rw [getNotification, addNotification, Keyed.get_concat, ← getNotification, absent]
  simp [queuedNotification, createNotification]

theorem getWorkspace_leaks (valid : database.Valid)
    (caller : CallerOf environment workspaceId database authorization) (apart : id ≠ workspaceId) :
    ¬ Isolated environment workspaceId database ⟨authorization, .getWorkspace id⟩ := by
  intro isolated
  cases found : getWorkspaceById database id with
  | none =>
    obtain ⟨slug, free⟩ := Keyed.exists_fresh (database.workspaces.map fun workspace =>
      workspace.2.slug)
    have same := isolated (addWorkspace database id slug)
      (addWorkspace_valid valid (Keyed.get_eq_none.mp found) free)
      (addWorkspace_agree apart) caller
    have there := getWorkspaceById_addWorkspace slug found
    simp [respond, getWorkspaceRoute, found, there] at same
  | some workspace =>
    obtain ⟨_, named⟩ := (Keyed.get_eq_some valid.workspaces).mp found
    have same := isolated (renameWorkspace database id) (renameWorkspace_valid valid)
      (renameWorkspace_agree valid apart) caller
    simp only [respond, getWorkspaceRoute, getWorkspaceById_rename, found, Option.map_some, rename,
      named, if_true,
      Response.workspace.injEq, WorkspaceBody.mk.injEq] at same
    exact push_ne _ _ same.2.1

/-- The members of a response are users. -/
theorem user_of_mem {nameLe : String → String → Bool} {body : WorkspaceMemberBody}
    (listed : body ∈ getWorkspaceMembers database nameLe id) :
    body.id ∈ database.users.map fun user => user.1 := by
  obtain ⟨member, _, joined⟩ := List.mem_filterMap.mp ((List.mem_insertionSort _).mp listed)
  obtain ⟨user, found, rfl⟩ := Option.map_eq_some_iff.mp joined
  exact List.mem_map.mpr ⟨user, List.mem_of_find?_eq_some found, rfl⟩

theorem getWorkspaceMembers_leaks (valid : database.Valid)
    (caller : CallerOf environment workspaceId database authorization) (apart : id ≠ workspaceId) :
    ¬ Isolated environment workspaceId database ⟨authorization, .getWorkspaceMembers id⟩ := by
  intro isolated
  cases found : getWorkspaceById database id with
  | none =>
    obtain ⟨slug, free⟩ := Keyed.exists_fresh (database.workspaces.map fun workspace =>
      workspace.2.slug)
    have same := isolated (addWorkspace database id slug)
      (addWorkspace_valid valid (Keyed.get_eq_none.mp found) free)
      (addWorkspace_agree apart) caller
    have there := getWorkspaceById_addWorkspace slug found
    simp [respond, getWorkspaceMembersRoute, found, there] at same
  | some workspace =>
    obtain ⟨member, named⟩ := (Keyed.get_eq_some valid.workspaces).mp found
    have present : id ∈ database.workspaces.map fun workspace => workspace.1 :=
      List.mem_map.mpr ⟨workspace, member, named⟩
    obtain ⟨userId, fresh⟩ := Keyed.exists_fresh (database.users.map fun user => user.1)
    obtain ⟨email, free⟩ := Keyed.exists_fresh (database.users.map fun user => user.2.email)
    have same := isolated (addMember database id userId email)
      (addMember_valid valid present fresh free)
      (addMember_agree valid apart fresh) caller
    have there : getWorkspaceById (addMember database id userId email) id = some workspace := found
    simp only [respond, getWorkspaceMembersRoute, found, there, Response.members.injEq] at same
    have joined : getUserById (addMember database id userId email) userId =
        some (userId, { email, name := email, createdAt := 0, updatedAt := 0 }) := by
      rw [getUserById, addMember, Keyed.get_concat, Keyed.get_eq_none.mpr fresh]
      simp
    have listed : ⟨userId, email, email, .member⟩ ∈
        getWorkspaceMembers (addMember database id userId email) environment.nameLe id := by
      refine (List.mem_insertionSort _).mpr
        (List.mem_filterMap.mpr ⟨{ workspaceId := id, userId, joinedAt := 0 }, ?_, ?_⟩)
      · simp [addMember]
      · simp [memberBody, joined]
    rw [same] at listed
    exact fresh (user_of_mem listed)

theorem getNotify_leaks {apiKeyId owner : Uuid} (valid : database.Valid)
    (caller : CallerOf environment workspaceId database authorization)
    (accepted : guard environment database authorization = .authenticated apiKeyId owner)
    (foreign : ∀ row ∈ database.notifications, row.val.id = id →
      row.val.workspaceId ≠ workspaceId) :
    ¬ Isolated environment workspaceId database ⟨authorization, .getNotify id⟩ := by
  intro isolated
  cases found : getNotification database id with
  | none =>
    obtain ⟨_, keyPrefix, _, _, checked⟩ := authenticateApiKey_authenticated.mp accepted
    obtain ⟨record, there, _⟩ := checkApiKey_authenticated.mp checked
    have keyed : apiKeyId ∈ database.apiKeys.map fun apiKey => apiKey.1 :=
      List.mem_map.mpr ⟨_, List.mem_of_find?_eq_some there, rfl⟩
    obtain ⟨other, fresh⟩ := Keyed.exists_fresh
      (workspaceId :: database.workspaces.map fun workspace => workspace.1)
    obtain ⟨apart, unused⟩ := not_or.mp (List.mem_cons.not.mp fresh)
    obtain ⟨slug, free⟩ := Keyed.exists_fresh (database.workspaces.map fun workspace =>
      workspace.2.slug)
    have valid' : (addNotification (addWorkspace database other slug) id other apiKeyId).Valid :=
      addNotification_valid (addWorkspace_valid valid unused free)
        (List.mem_map.mpr ⟨_, List.mem_append_right _ (List.mem_singleton.mpr rfl), rfl⟩) keyed
        (Keyed.get_eq_none.mp found)
    have same := isolated _ valid' ((addWorkspace_agree apart).trans (addNotification_agree apart))
      caller
    have listed : getNotification
      (addNotification (addWorkspace database other slug) id other apiKeyId) id =
        some (queuedNotification id other apiKeyId) := getNotification_addNotification found
    have accepted' : guard environment
      (addNotification (addWorkspace database other slug) id other apiKeyId)
        authorization = .authenticated apiKeyId owner := accepted
    simp [respond, accepted, accepted', getNotify, found, listed] at same
  | some row =>
    obtain ⟨member, named⟩ := (Keyed.get_eq_some valid.notifications).mp found
    have same := isolated (readdressNotification database id) (readdressNotification_valid valid)
      (readdressNotification_agree foreign) caller
    have there : getNotification (readdressNotification database id) id =
        (getNotification database id).map (readdress id) :=
      Keyed.get_map readdress_id
    have accepted' : guard environment (readdressNotification database id) authorization =
        .authenticated apiKeyId owner :=
      accepted
    simp only [respond, accepted, accepted', getNotify, there, found, Option.map_some, readdress,
      named, if_true,
      Response.notification.injEq, buildGetResponse, GetNotificationResponseBody.mk.injEq] at same
    exact push_ne _ _ same.2.2.1

end Converse

/-- A request of a caller of the workspace is answered from its rows alone exactly if it is refused
or is for what the workspace owns. -/
theorem isolated_iff {environment : Environment} {workspaceId : Uuid} {database : Database}
    {request : Request}
    (valid : database.Valid) (caller : CallerOf environment workspaceId database
      request.authorization) :
    Isolated environment workspaceId database request ↔
      Within environment workspaceId database request := by
  refine ⟨?_, isolated_of_within valid caller⟩
  intro isolated
  obtain ⟨authorization, route⟩ := request
  cases route with
  | getNotify id =>
    rintro ⟨apiKeyId, owner, accepted⟩
    by_contra foreign
    push Not at foreign
    exact getNotify_leaks valid caller accepted foreign isolated
  | getWorkspace id =>
    by_contra apart
    exact getWorkspace_leaks valid caller apart isolated
  | getWorkspaceMembers id =>
    by_contra apart
    exact getWorkspaceMembers_leaks valid caller apart isolated

section Tenants

def sampleEnvironment : Environment where
  sha512 := id
  now := 5
  nameLe first second := first.length ≤ second.length

private def sampleKey (workspaceId userId : Uuid) (text : String) : StoredApiKey :=
  ⟨{ workspaceId, createdBy := userId, name := "ci",
     keyPrefix := String.ofList (text.toList.take 12), keyHash := text,
     expiresAt := none, createdAt := 1, updatedAt := 1 },
    ⟨show strip (· = ' ') "ci".toList ≠ [] by decide, .inl ⟨rfl, rfl⟩⟩⟩

/-- Workspace 1 with its key, and workspace 2. -/
def tenants : Database where
  users := [(11, ⟨"ann@acme.io", "Ann", true, 1, 1⟩), (22, ⟨"bob@beta.io", "Bob", true, 1, 1⟩)]
  workspaces := [(1, ⟨"Acme", "acme", .active, 1, 1⟩), (2, ⟨"Beta", "beta", .active, 1, 1⟩)]
  members := [⟨1, 11, .owner, 1⟩, ⟨2, 22, .owner, 1⟩]
  apiKeys := [(5, sampleKey 1 11 "rly_acme12345678"), (6, sampleKey 2 22 "rly_beta12345678")]
  notifications := [queuedNotification 8 1 5]

def acmeRequest (route : Route) : Request := ⟨some ("Bearer " ++ "rly_acme12345678"), route⟩

theorem tenants_valid : tenants.Valid := by
  constructor <;> decide

theorem acme_caller (route : Route) :
    CallerOf sampleEnvironment 1 tenants (acmeRequest route).authorization := by
  rintro presented keyPrefix header extracted apiKey member named hashed
  obtain ⟨rfl, _⟩ := presentedKey_bearer_eq_ok.mp header
  simp only [tenants, List.mem_cons, List.not_mem_nil, or_false] at member
  rcases member with rfl | rfl
  · rfl
  · exact absurd hashed (by decide)

theorem isolated_iff_tenants : Isolated sampleEnvironment 1 tenants (acmeRequest (.getNotify 8)) ∧
    ¬ Isolated sampleEnvironment 1 tenants (acmeRequest (.getNotify 9)) := by
  constructor
  · refine (isolated_iff tenants_valid (acme_caller _)).mpr fun _ => ?_
    exact ⟨queuedNotification 8 1 5, List.mem_singleton.mpr rfl, rfl, rfl⟩
  · intro isolated
    have within := (isolated_iff tenants_valid (acme_caller _)).mp isolated
    obtain ⟨row, member, same, _⟩ := within ⟨5, 1, by decide⟩
    rw [List.mem_singleton.mp member] at same
    exact absurd same (by decide)

/-- The same, with a notification of workspace 2. -/
def withForeign : Database := addNotification tenants 9 2 6

/-- The key of workspace 1 reads the notification of workspace 2. -/
theorem foreign_notification_read : tenants.Valid ∧ withForeign.Valid ∧
    Agree 1 tenants withForeign ∧
    CallerOf sampleEnvironment 1 tenants (acmeRequest (.getNotify 9)).authorization ∧
    CallerOf sampleEnvironment 1 withForeign (acmeRequest (.getNotify 9)).authorization ∧
    respond sampleEnvironment tenants (acmeRequest (.getNotify 9)) = .error notificationNotFound ∧
    respond sampleEnvironment withForeign (acmeRequest (.getNotify 9)) =
      .notification (buildGetResponse (queuedNotification 9 2 6).val) := by
  refine ⟨tenants_valid, ?_, addNotification_agree (by decide), acme_caller _,
    acme_caller (.getNotify 9),
    by decide, by decide⟩
  exact addNotification_valid tenants_valid (by decide) (by decide) (by decide)

end Tenants

end Relays.Tenancy
