import Relays.Auth.References
import Relays.Engine.ClaimScan
import Relays.Engine.Payloads
import Relays.Platform.Admission

/-! The committed rows of the platform meet the schema. The unique constraints are checked by the
statements that write. No statement of the model checks a foreign key, and none has to: what refers
to a row comes from a guard or a look-up that has seen it. -/

namespace Relays

open ReadCommitted Transition

section Rows

variable {Key Tx Row Column : Type} {relation : Relation Key Tx Row} {key : Key} {found : Row}
variable {clash : Row → Row → Bool} {changed : Row → Option Row → Prop}

/-- The rows of a table, in storage order. -/
def committed (relation : Relation Key Tx Row) : List (Key × Row) := relation.select fun _ => true

theorem mem_committed (sound : Relation.Sound clash changed relation) :
    (key, found) ∈ committed relation ↔ relation.row key = some found := by
  rw [committed, Relation.mem_select]
  constructor
  · exact fun ⟨_, present, _⟩ => present
  · intro present
    refine ⟨sound.member ?_, present, rfl⟩
    intro nothing
    simp [Relation.row, nothing] at present

theorem mem_committed_keys (sound : Relation.Sound clash changed relation) :
    key ∈ (committed relation).map Prod.fst ↔ (relation.row key).isSome = true := by
  rw [List.mem_map, Option.isSome_iff_exists]
  constructor
  · rintro ⟨⟨_, row⟩, member, rfl⟩
    exact ⟨row, (mem_committed sound).mp member⟩
  · rintro ⟨row, present⟩
    exact ⟨(key, row), (mem_committed sound).mpr present, rfl⟩

theorem committed_keys_sublist : ((committed relation).map Prod.fst).Sublist relation.keys := by
  unfold committed Relation.select
  induction relation.keys with
  | nil => exact List.Sublist.refl _
  | cons key rest ih =>
    cases present : relation.row key with
    | none =>
      simp only [List.filterMap_cons, present, Option.bind_none]
      exact ih.cons key
    | some row =>
      simp only [List.filterMap_cons, present, Option.bind_some, ↓reduceIte, List.map_cons]
      exact ih.cons_cons key

theorem committed_keys_nodup (distinct : relation.keys.Nodup) :
    ((committed relation).map Prod.fst).Nodup :=
  distinct.sublist committed_keys_sublist

/-- Columns under a unique constraint have no value twice. -/
theorem committed_nodup (sound : Relation.Sound clash changed relation)
    (distinct : relation.keys.Nodup)
    (column : Row → Column) (clashes : ∀ first second, column first = column second →
      clash first second = true) :
    ((committed relation).map fun entry => column entry.2).Nodup := by
  apply List.Nodup.map_on
  · rintro ⟨one, first⟩ member ⟨two, second⟩ another same
    have left := (mem_committed sound).mp member
    have right := (mem_committed sound).mp another
    obtain rfl : one = two := by
      by_contra apart
      have quiet := sound.distinct one two first second apart left right
      rw [clashes first second same] at quiet
      cases quiet
    rw [Option.some.inj (left.symm.trans right)]
  · exact List.Nodup.of_map Prod.fst (committed_keys_nodup distinct)

/-- Values that are distinct where the first components agree are distinct pairs. -/
theorem nodup_pairs {Row First Second : Type} [DecidableEq First] {first : Row → First}
    {second : Row → Second} {rows : List Row}
    (each : ∀ value, ((rows.filter fun row => first row = value).map second).Nodup) :
    (rows.map fun row => (first row, second row)).Nodup := by
  induction rows with
  | nil => exact List.nodup_nil
  | cons head rest ih =>
    rw [List.map_cons, List.nodup_cons]
    constructor
    · intro again
      obtain ⟨row, listed, same⟩ := List.mem_map.mp again
      obtain ⟨one, two⟩ := Prod.mk.inj same
      have distinct := each (first head)
      rw [List.filter_cons_of_pos (by simp), List.map_cons, List.nodup_cons] at distinct
      exact distinct.1 (List.mem_map.mpr ⟨row, List.mem_filter.mpr ⟨listed, by simp [one]⟩, two⟩)
    · apply ih
      intro value
      exact (each value).sublist (((List.sublist_cons_self head rest).filter _).map second)

end Rows

namespace Platform

/-- The committed rows. -/
def database (platform : Platform) : Tenancy.Database where
  users := committed platform.auth.world.users
  workspaces := committed platform.auth.world.workspaces
  members := (committed platform.auth.world.members).map Prod.snd
  apiKeys := committed platform.apiKeys.apiKeys
  notifications := platform.engine.world.notificationIds.filterMap platform.engine.world.row

variable {settings : Settings} {platform after before : Platform} {events : List Event}
    {event : Event}

/-- What `authenticate_jwt` attaches is a membership on record. -/
theorem joined_of_jwtGuard {authorization : Option String} {caller : ApiKeys.Caller}
    (run : Run (system settings) Any events platform)
    (accepted : platform.jwtGuard settings authorization = .ok caller) :
    platform.auth.world.Joined caller.workspaceId caller.userId := by
  have inner := (accounts settings).run run
  unfold jwtGuard Auth.authenticateJwt at accepted
  split at accepted
  · cases accepted
  · split at accepted
    · cases accepted
    · split at accepted
      · cases accepted
      · rename_i found
        cases accepted
        obtain ⟨⟨⟨workspaceId, userId⟩, member⟩, hit, rfl⟩ := Option.map_eq_some_iff.mp found
        have seen := (Auth.getWorkspaceContext_some hit).1
        have owned := ((Auth.State.run_sound inner).owned platform.auth.calls.length).members
        have idle : (platform.auth.writes platform.auth.calls.length).members = [] := by
          simp [Auth.State.writes]
        rw [show ((accounts settings).view platform) = platform.auth from rfl, idle] at owned
        rw [Relation.view_of_unwritten owned] at seen
        obtain ⟨rfl, rfl, _⟩ := (Auth.State.run_paired inner).members workspaceId userId member seen
        exact Option.isSome_iff_exists.mpr ⟨member, seen⟩

/-- What `authenticate_api_key` attaches is a key on record, of its workspace. -/
theorem ownedBy_of_apiKeyGuard {authorization : Option String} {apiKeyId workspaceId : Uuid}
    (run : Run (system settings) Any events platform)
    (accepted : platform.apiKeyGuard settings authorization = .authenticated apiKeyId workspaceId) :
    ApiKeys.OwnedBy platform.apiKeys apiKeyId workspaceId := by
  have sound := ApiKeys.State.run_sound ((keys settings).run run)
  obtain ⟨apiKey, keyPrefix, _, _, checked⟩ := authenticateApiKey_authenticated.mp accepted
  obtain ⟨record, found, own, _⟩ := checkApiKey_authenticated.mp checked
  obtain ⟨present, _⟩ := (ApiKeys.getApiKeyByPrefix_eq_some sound.apiKeys).mp found
  exact ⟨record, present, own⟩

/-- Whom `authenticate_jwt` has once let through is a member for good. -/
theorem Admitted.joined {caller : ApiKeys.Caller} (admitted : Admitted settings events caller)
    (run : Run (system settings) Any events platform) :
    platform.auth.world.Joined caller.workspaceId caller.userId := by
  obtain ⟨front, before, authorization, after, takes, accepted⟩ := admitted
  obtain ⟨back, split⟩ := takes.split
  refine (accounts settings).keeps
    (fun state => state.world.Joined caller.workspaceId caller.userId) run split
    takes.reached (joined_of_jwtGuard takes.reached accepted) ?_
  intro _ _ _ _ earlier joined taken
  exact (Auth.State.step_moves taken).joined (Auth.State.run_sound earlier) joined

/-- The key that a request has once presented is on record for good. -/
theorem Presented.ownedBy {client : Client} (presented : Presented settings events client)
    (run : Run (system settings) Any events platform) :
    ApiKeys.OwnedBy platform.apiKeys client.apiKeyId client.workspaceId := by
  obtain ⟨front, before, authorization, after, takes, accepted⟩ := presented
  obtain ⟨back, split⟩ := takes.split
  refine (keys settings).keeps
    (fun state => ApiKeys.OwnedBy state client.apiKeyId client.workspaceId) run split
    takes.reached (ownedBy_of_apiKeyGuard takes.reached accepted) ?_
  intro _ _ _ _ earlier owned taken
  have sound := ApiKeys.State.run_sound earlier
  exact ((ApiKeys.State.step_moves taken).effect sound).ownedBy sound owned

/-- The owner of the workspace, the only member that it has. -/
def Owner (platform : Platform) (workspaceId userId : Uuid) : Prop :=
  ∃ member, platform.auth.world.members.row (workspaceId, userId) = some member ∧
    member.role = .owner ∧
    platform.auth.world.HasUser userId ∧
      (platform.auth.world.workspaces.row workspaceId).isSome = true

/-- What the parties in flight are about to refer to, and what their transactions have written
refers to, is on record or written by the same transaction. -/
structure Grounded (platform : Platform) : Prop where
  /-- The user a login has looked up. -/
  users : ∀ (index : Nat) call userId, platform.auth.calls[index]? = some call →
    call.namedUser = some userId → platform.auth.world.HasUser userId
  members : ∀ (index : Nat) call workspaceId userId member,
    platform.auth.calls[index]? = some call →
    ((workspaceId, userId), some member) ∈ call.writes.members →
    (∃ user, (userId, some user) ∈ call.writes.users) ∧
      ∃ workspace, (workspaceId, some workspace) ∈ call.writes.workspaces
  sessions : ∀ (index : Nat) call id session, platform.auth.calls[index]? = some call →
    (id, some session) ∈ call.writes.sessions →
    platform.auth.world.HasUser session.val.userId ∨
      ∃ user, (session.val.userId, some user) ∈ call.writes.users
  loginOtps : ∀ id owner otp,
    (platform.auth.world.loginOtps.cells id).pending = some (owner, some otp) →
    platform.auth.world.HasUser otp.val.owner
  callers : ∀ (index : Nat) call, platform.apiKeys.calls[index]? = some call →
    platform.Owner call.caller.workspaceId call.caller.userId
  requests : ∀ (index : Nat) request, platform.engine.requests[index]? = some request →
    ApiKeys.OwnedBy platform.apiKeys request.arguments.apiKeyId request.arguments.workspaceId
  /-- The notification that an idempotency record is about to name. -/
  drafts : ∀ (index : Nat) request record notification,
    platform.engine.requests[index]? = some request →
    request.phase = .created record notification →
    ∃ stored, (platform.engine.world.notifications notification.id).pending =
      some (.request index, some stored)
  /-- The notification whose attempts a worker records. -/
  executions : ∀ (index : Nat) execution notification,
    platform.engine.executions[index]? = some execution →
    execution.phase.snapshot = some notification →
    (platform.engine.world.row execution.notificationId).isSome = true

/-- The schema over all tables, with what it does not say of the keys: a key is created by the owner
of its workspace, and a notification is sent with a key of its own workspace. -/
structure Consistent (settings : Settings) (platform : Platform) : Prop where
  database : platform.database.Valid
  sessions : ((committed platform.auth.world.sessions).map Prod.fst).Nodup
  uqSessionsRefreshTokenHash : ((committed platform.auth.world.sessions).map fun session =>
    session.2.val.refreshTokenHash).Nodup
  loginOtps : ((committed platform.auth.world.loginOtps).map Prod.fst).Nodup
  uqUserId : ((committed platform.auth.world.loginOtps).map fun otp => otp.2.val.owner).Nodup
  registrationOtps : ((committed platform.auth.world.registrationOtps).map Prod.fst).Nodup
  uqRegistrationEmail : ((committed platform.auth.world.registrationOtps).map fun otp =>
    otp.2.val.owner).Nodup
  chkUniqueAttempt : (platform.engine.world.attempts.committed.map fun attempt =>
    (attempt.notificationId, attempt.attemptNumber)).Nodup
  fkSessionsUserId : ∀ id session, platform.auth.world.sessions.row id = some session →
    platform.auth.world.HasUser session.val.userId
  fkLoginOtpUserId : ∀ id otp, platform.auth.world.loginOtps.row id = some otp →
    platform.auth.world.HasUser otp.val.owner
  fkDeliveryAttemptsNotification : ∀ attempt ∈ platform.engine.world.attempts.committed,
    (platform.engine.world.row attempt.notificationId).isSome = true
  fkIdempotencyApiKey : ∀ key record, (platform.engine.world.idempotency key).committed =
    some record →
    (platform.apiKeys.apiKeys.row key.apiKeyId).isSome = true
  fkIdempotencyNotification : ∀ key record, (platform.engine.world.idempotency key).committed =
    some record →
    ∃ id, record.notificationId = some id ∧ (platform.engine.world.row id).isSome = true
  creators : ∀ id key, platform.apiKeys.apiKeys.row id = some key →
    platform.Owner key.val.workspaceId key.val.createdBy
  ownKey : ∀ id stored, platform.engine.world.row id = some stored →
    ApiKeys.OwnedBy platform.apiKeys stored.val.apiKeyId stored.val.workspaceId
  grounded : platform.Grounded
  guards : ∀ authorization nameLe,
    Tenancy.guard ⟨settings.auth.sha512, platform.apiKeys.clock,
      nameLe⟩ platform.database authorization =
      platform.apiKeyGuard settings authorization

section Consistency

variable (run : Run (system settings) Any events platform)

include run

theorem Admitted.owner {caller : ApiKeys.Caller} (admitted : Admitted settings events caller) :
    platform.Owner caller.workspaceId caller.userId := by
  obtain ⟨member, present⟩ := Option.isSome_iff_exists.mp (admitted.joined run)
  obtain ⟨_, _, role, user, workspace⟩ :=
    (Auth.State.run_paired ((accounts settings).run run)).members _ _ member present
  exact ⟨member, present, role, user, workspace⟩

/-- A key is that of the owner of its workspace. -/
theorem run_creators {id : Uuid} {key : StoredApiKey}
    (present : platform.apiKeys.apiKeys.row id = some key) :
    platform.Owner key.val.workspaceId key.val.createdBy := by
  obtain ⟨index, call, found, own⟩ :=
    (ApiKeys.State.run_authored ((keys settings).run run)).rows id key present
  have owner := Admitted.owner run ((run_guards run).calls index call found)
  rwa [own] at owner

/-- A notification is sent with a key of its own workspace. -/
theorem run_ownKey {id : Uuid} {stored : StoredNotification}
    (present : platform.engine.world.row id = some stored) :
    ApiKeys.OwnedBy platform.apiKeys stored.val.apiKeyId stored.val.workspaceId := by
  obtain ⟨index, request, now, found, same⟩ :=
    Engine.run_submitted ((deliveries settings).run run) present
  have presented := (run_guards run).requests index request found
  rw [show stored.val.apiKeyId = request.arguments.apiKeyId from
    congrArg NotificationIdentity.apiKeyId same,
    show stored.val.workspaceId = request.arguments.workspaceId from
      congrArg NotificationIdentity.workspaceId same]
  exact presented.ownedBy run

theorem mem_members {member : WorkspaceMember} : member ∈ platform.database.members ↔
    platform.auth.world.members.row (member.workspaceId, member.userId) = some member := by
  have inner := (accounts settings).run run
  have sound := (Auth.State.run_sound inner).world.members
  unfold database
  rw [List.mem_map]
  constructor
  · rintro ⟨⟨⟨workspaceId, userId⟩, row⟩, listed, rfl⟩
    have present := (mem_committed sound).mp listed
    obtain ⟨rfl, rfl, _⟩ := (Auth.State.run_paired inner).members workspaceId userId row present
    exact present
  · intro present
    exact ⟨(_, member), (mem_committed sound).mpr present, rfl⟩

theorem mem_notifications {stored : StoredNotification} : stored ∈ platform.database.notifications ↔
    platform.engine.world.row stored.val.id = some stored := by
  have sound := (Engine.run_sound ((deliveries settings).run run)).world
  unfold database
  rw [List.mem_filterMap]
  constructor
  · rintro ⟨id, _, present⟩
    rw [(sound.keyed id stored present).1]
    exact present
  · intro present
    refine ⟨stored.val.id, sound.known _ ?_, present⟩
    rintro ⟨nothing, _⟩
    have there : platform.engine.world.row stored.val.id = none := nothing
    rw [there] at present
    cases present

theorem members_nodup :
    (platform.database.members.map fun member => (member.workspaceId, member.userId)).Nodup := by
  have inner := (accounts settings).run run
  have sound := (Auth.State.run_sound inner).world.members
  have named : (committed platform.auth.world.members).map
      ((fun member : WorkspaceMember => (member.workspaceId, member.userId)) ∘ Prod.snd) =
      (committed platform.auth.world.members).map Prod.fst := by
    apply List.map_congr_left
    rintro ⟨⟨workspaceId, userId⟩, row⟩ listed
    obtain ⟨workspace, user, _⟩ :=
      (Auth.State.run_paired inner).members workspaceId userId row ((mem_committed sound).mp listed)
    exact Prod.ext workspace user
  unfold database
  rw [List.map_map, named]
  exact committed_keys_nodup (Auth.State.run_keys_nodup inner).2.2

theorem notifications_nodup :
    (platform.database.notifications.map fun notification => notification.val.id).Nodup := by
  have inner := (deliveries settings).run run
  have keyed := (Engine.run_sound inner).world.keyed
  have distinct := Engine.run_ids inner
  unfold database
  rw [List.map_filterMap]
  refine distinct.filterMap ?_
  intro one two id first second
  obtain ⟨left, present, rfl⟩ := Option.map_eq_some_iff.mp first
  obtain ⟨right, other, same⟩ := Option.map_eq_some_iff.mp second
  rw [← (keyed one left present).1, ← (keyed two right other).1]
  exact same.symm

theorem run_database : platform.database.Valid := by
  have inner := (accounts settings).run run
  have sound := (Auth.State.run_sound inner).world
  have paired := Auth.State.run_paired inner
  have keysSound := (ApiKeys.State.run_sound ((keys settings).run run)).apiKeys
  have keysNodup := ApiKeys.State.run_keys_nodup ((keys settings).run run)
  obtain ⟨users, workspaces, members⟩ := Auth.State.run_keys_nodup inner
  exact {
    users := committed_keys_nodup users
    uqEmail := committed_nodup sound.users users User.email fun _ _ same => by
      simpa [User.clash] using same
    workspaces := committed_keys_nodup workspaces
    uqSlug := committed_nodup sound.workspaces workspaces Workspace.slug fun _ _ same => by
      simpa [Workspace.clash] using same
    members := members_nodup run
    uqWorkspaceSingleOwner := by
      apply List.Nodup.map_on
      · intro one first two second same
        have left := (mem_members run).mp (List.mem_of_mem_filter first)
        have right := (mem_members run).mp (List.mem_of_mem_filter second)
        have joined : ∀ member, platform.auth.world.members.row (member.workspaceId,
          member.userId) = some member →
            platform.auth.world.Joined member.workspaceId member.userId := fun member present =>
          Option.isSome_iff_exists.mpr ⟨member, present⟩
        have user := paired.unique.2 (joined one left) (same ▸ joined two right)
        rw [same, user, right] at left
        exact (Option.some.inj left).symm
      · exact (List.Nodup.of_map _ (members_nodup run)).filter _
    apiKeys := committed_keys_nodup keysNodup
    uqKeyPrefix := committed_nodup keysSound keysNodup
      (fun row => row.val.keyPrefix) fun _ _ same => by
      simp [ApiKey.clash, same]
    uqWorkspaceIdName := committed_nodup keysSound keysNodup
      (fun row => (row.val.workspaceId, row.val.name))
      fun _ _ same => by
        obtain ⟨workspace, name⟩ := Prod.mk.inj same
        simp [ApiKey.clash, workspace, name]
    notifications := notifications_nodup run
    fkMemberWorkspace := by
      intro member listed
      have present := (mem_members run).mp listed
      exact (mem_committed_keys sound.workspaces).mpr (paired.members _ _ member present).2.2.2.2
    fkMemberUser := by
      intro member listed
      have present := (mem_members run).mp listed
      exact (mem_committed_keys sound.users).mpr (paired.members _ _ member present).2.2.2.1
    fkKeyWorkspace := by
      rintro ⟨id, key⟩ listed
      obtain ⟨_, _, _, _, workspace⟩ := run_creators run ((mem_committed keysSound).mp listed)
      exact (mem_committed_keys sound.workspaces).mpr workspace
    fkCreatedBy := by
      rintro ⟨id, key⟩ listed
      obtain ⟨_, _, _, user, _⟩ := run_creators run ((mem_committed keysSound).mp listed)
      exact (mem_committed_keys sound.users).mpr user
    fkNotificationsWorkspace := by
      intro stored listed
      obtain ⟨key, present, own⟩ := run_ownKey run ((mem_notifications run).mp listed)
      obtain ⟨_, _, _, _, workspace⟩ := run_creators run present
      rw [own] at workspace
      exact (mem_committed_keys sound.workspaces).mpr workspace
    fkNotificationsApiKey := by
      intro stored listed
      obtain ⟨key, present, _⟩ := run_ownKey run ((mem_notifications run).mp listed)
      exact (mem_committed_keys keysSound).mpr (Option.isSome_iff_exists.mpr ⟨key, present⟩) }

/-- The read routes find a key where the guard of the platform does. -/
theorem run_guard (nameLe : String → String → Bool) (authorization : Option String) :
    Tenancy.guard ⟨settings.auth.sha512, platform.apiKeys.clock,
      nameLe⟩ platform.database authorization =
      platform.apiKeyGuard settings authorization := by
  have sound := (ApiKeys.State.run_sound ((keys settings).run run)).apiKeys
  have same : Tenancy.getApiKeyByPrefix platform.database =
      ApiKeys.getApiKeyByPrefix platform.apiKeys.apiKeys := by
    funext keyPrefix
    ext ⟨id, row⟩
    rw [Tenancy.getApiKeyByPrefix, Keyed.get_eq_some (run_database run).uqKeyPrefix]
    exact (and_congr_left' (mem_committed sound)).trans
      (ApiKeys.getApiKeyByPrefix_eq_some sound).symm
  rw [Tenancy.guard, same]
  rfl

theorem run_attempt {attempt : DeliveryAttempt}
    (recorded : attempt ∈ platform.engine.world.attempts.committed) :
    (platform.engine.world.row attempt.notificationId).isSome = true := by
  have ledger := (Engine.run_lifecycle
    ((deliveries settings).run run) attempt.notificationId).ledger
  cases present : platform.engine.world.row attempt.notificationId with
  | some stored => rfl
  | none =>
    have empty : (platform.engine.world.lifecycle attempt.notificationId).attempts = [] :=
      ledger.1 present
    have listed : attempt ∈ (platform.engine.world.lifecycle attempt.notificationId).attempts := by
      simp [World.lifecycle, recorded]
    rw [empty] at listed
    cases listed

/-- The attempts of a notification are numbered, so no number is there twice. -/
theorem run_attempts_nodup : (platform.engine.world.attempts.committed.map fun attempt =>
    (attempt.notificationId, attempt.attemptNumber)).Nodup := by
  apply nodup_pairs
  intro id
  have ledger : (platform.engine.world.lifecycle id).Ledger id :=
    (Engine.run_lifecycle ((deliveries settings).run run) id).ledger
  have own : platform.engine.world.attempts.committed.filter
      (fun attempt => attempt.notificationId = id) =
      (platform.engine.world.lifecycle id).attempts := rfl
  rw [own]
  cases present : platform.engine.world.row id with
  | none =>
    rw [ledger.1 present]
    exact List.nodup_nil
  | some stored =>
    rw [ledger.2.2 stored present]
    exact List.nodup_range'

theorem run_grounded : platform.Grounded := by
  have accountRun := (accounts settings).run run
  have engineRun := (deliveries settings).run run
  have referenced := Auth.State.run_referenced accountRun
  have recorded := Auth.Flow.run_recorded Auth.loginOtps_lawful accountRun
  have sound := Engine.run_sound engineRun
  exact {
    users := referenced.named
    members := fun _ _ _ _ _ _ => Auth.Call.writes_member
    sessions := referenced.written
    loginOtps := fun _ _ _ => referenced.pendingOtp recorded
    callers := fun index call found => Admitted.owner run ((run_guards run).calls index call found)
    requests := fun index request found =>
      ((run_guards run).requests index request found).ownedBy run
    drafts := by
      intro index request record notification found current
      obtain ⟨_, _, drafts⟩ := (sound.request found).created record notification current
      obtain ⟨stored, _, held⟩ := drafts.pending
      exact ⟨stored, held⟩
    executions := by
      intro index execution notification found loaded
      obtain ⟨stored, present, _⟩ := (sound.worker found).snapshot notification loaded
      exact Option.isSome_iff_exists.mpr ⟨stored, present⟩ }

/-- Whatever runs at the same time and whatever fails, the rows that are committed are those of a
consistent database. -/
theorem consistent : Consistent settings platform := by
  have accountRun := (accounts settings).run run
  have engineRun := (deliveries settings).run run
  have referenced := Auth.State.run_referenced accountRun
  have sound := (Auth.State.run_sound accountRun).world
  obtain ⟨sessions, loginOtps, registrationOtps⟩ :=
    Auth.State.run_credential_keys_nodup accountRun
  exact {
    database := run_database run
    sessions := committed_keys_nodup sessions
    uqSessionsRefreshTokenHash := committed_nodup sound.sessions sessions
      (fun row => row.val.refreshTokenHash) fun _ _ same => by simpa [Session.clash] using same
    loginOtps := committed_keys_nodup loginOtps
    uqUserId := committed_nodup sound.loginOtps loginOtps
      (fun row => row.val.owner) fun _ _ same => by simpa [Otp.clash] using same
    registrationOtps := committed_keys_nodup registrationOtps
    uqRegistrationEmail := committed_nodup sound.registrationOtps registrationOtps
      (fun row => row.val.owner) fun _ _ same => by simpa [Otp.clash] using same
    chkUniqueAttempt := run_attempts_nodup run
    fkSessionsUserId := referenced.sessions
    fkLoginOtpUserId := fun id otp =>
      referenced.loginOtp (Auth.Flow.run_recorded Auth.loginOtps_lawful accountRun)
    fkDeliveryAttemptsNotification := fun _ => run_attempt run
    fkIdempotencyApiKey := by
      intro key record present
      obtain ⟨index, id, ⟨request, _, found, rfl, _⟩, _⟩ :=
        (Engine.run_originals engineRun).record key record present
      obtain ⟨row, there, _⟩ := ((run_guards run).requests index request found).ownedBy run
      exact Option.isSome_iff_exists.mpr ⟨row, there⟩
    fkIdempotencyNotification := by
      intro key record present
      obtain ⟨_, id, stored, noted, there⟩ :=
        (Engine.run_sound engineRun).world.records key record present
      exact ⟨id, noted, Option.isSome_iff_exists.mpr ⟨stored, there⟩⟩
    creators := fun _ _ => run_creators run
    ownKey := fun _ _ => run_ownKey run
    grounded := run_grounded run
    guards := fun authorization nameLe => run_guard run nameLe authorization }

end Consistency

/-- A database with an account, a key and a notification that has been sent. -/
theorem consistent_serves : ∃ platform, Run (system sampleSettings) Any serves platform ∧
    (platform.engine.world.row 7).isSome = true ∧ Consistent sampleSettings platform := by
  obtain ⟨platform, run, present, _⟩ := serves_sends
  exact ⟨platform, run, present, consistent run⟩

end Platform

end Relays
